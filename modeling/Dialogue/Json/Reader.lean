import Dialogue.Json.Token

/-! # Reading saved texts

Tokens are taken one at a time. Containers still open are held as a list of frames, innermost
first, so that nesting costs no recursion.
-/

namespace Dialogue.Json

/-- A container still open, with what it holds so far, last first. -/
inductive Frame where
  | array (items : List Json)
  /-- The name of the member being read, and the members before it. A name that stands for no text
  makes the object unreadable. -/
  | object (name : Option String) (members : List (Option String × Json))

/-- What may come next. -/
inductive Expecting where
  | value
  | itemOrClose
  | nameOrClose
  | name
  | colon
  | separator
  | nothing

/-- A text read in part. -/
structure Reading where
  frames : List Frame
  expecting : Expecting
  /-- The value of the whole text, once it is complete. -/
  result : Json

/-- The deepest nesting of containers that is readable. -/
def depthLimit : Nat := 127

/-- Takes in a complete value. -/
def Reading.complete (r : Reading) (value : Json) : Reading :=
  match r.frames with
  | [] => { frames := [], expecting := .nothing, result := value }
  | .array items :: outer =>
    { r with frames := .array (value :: items) :: outer, expecting := .separator }
  | .object name members :: outer =>
    { r with frames := .object none ((name, value) :: members) :: outer, expecting := .separator }

def isTooDeep (outer : List Frame) : Bool :=
  !(outer.drop (depthLimit - 1)).isEmpty

theorem isTooDeep_iff {outer : List Frame} : isTooDeep outer ↔ depthLimit < outer.length + 1 := by
  rw [isTooDeep, Bool.not_eq_true', List.isEmpty_eq_false_iff, ne_eq, List.drop_eq_nil_iff]
  simp only [depthLimit]
  omega

def Frame.close (outer : List Frame) (frame : Frame) : Json :=
  if isTooDeep outer then unreadable
  else match frame with
    | .array items => arr items.reverse
    | .object _ members =>
      match members.reverse.mapM fun m => m.1.map fun name => (name, m.2) with
      | some members => obj members
      | none => unreadable

def Reading.push (r : Reading) (frame : Frame) (expecting : Expecting) : Reading :=
  { r with frames := frame :: r.frames, expecting := expecting }

def Reading.closeArray (r : Reading) : Option Reading :=
  match r.frames with
  | .array items :: outer =>
    some ({ r with frames := outer }.complete (Frame.close outer (.array items)))
  | _ => none

def Reading.closeObject (r : Reading) : Option Reading :=
  match r.frames with
  | .object name members :: outer =>
    some ({ r with frames := outer }.complete (Frame.close outer (.object name members)))
  | _ => none

def Reading.named (r : Reading) (name : Option String) : Option Reading :=
  match r.frames with
  | .object _ members :: outer =>
    some { r with frames := .object name members :: outer, expecting := .colon }
  | _ => none

/-- The token begins or is a value. -/
def Reading.value (r : Reading) : Token → Option Reading
  | .openArray => some (r.push (.array []) .itemOrClose)
  | .openObject => some (r.push (.object none []) .nameOrClose)
  | .text (some s) => some (r.complete (str s))
  | .text none => some (r.complete unreadable)
  | .scalar v => some (r.complete v)
  | _ => none

/-- One token; none when it may not stand here. -/
def Reading.step (r : Reading) (token : Token) : Option Reading :=
  match r.expecting, token with
  | .value, t => r.value t
  | .itemOrClose, .closeArray => r.closeArray
  | .itemOrClose, t => r.value t
  | .nameOrClose, .closeObject => r.closeObject
  | .nameOrClose, .text name => r.named name
  | .name, .text name => r.named name
  | .colon, .colon => some { r with expecting := .value }
  | .separator, .closeArray => r.closeArray
  | .separator, .closeObject => r.closeObject
  | .separator, .comma =>
    match r.frames with
    | .array _ :: _ => some { r with expecting := .value }
    | _ => some { r with expecting := .name }
  | _, _ => none

def read? (text : String) : Option Json := do
  let tokens ← tokens? text
  let r ← tokens.foldlM Reading.step { frames := [], expecting := .value, result := null }
  match r.expecting with
  | .nothing => some r.result
  | _ => none

end Dialogue.Json
