import Dialogue.Json.Basic
import Dialogue.Table

/-! # Saved forms

How a type of values is saved and loaded. An object is loaded member by member: a name it should
not have is skipped, one it has twice is refused.
-/

namespace Dialogue

class Saved (α : Type) where
  save : α → Json
  load? : Json → Option α

export Saved (save load?)

namespace Json

abbrev Members := List (String × Json)

def members? : Json → Option Members
  | obj members => some members
  | _ => none

def items? : Json → Option (List Json)
  | arr items => some items
  | _ => none

/-- The name of a case without content: a text, or an object with nothing under that name. -/
def caseName? : Json → Option String
  | str name => some name
  | obj [(name, null)] => some name
  | _ => none

namespace Members

/-- The one member with a name among `names`. None when there are several; `some none` when there
is none. -/
def find? (members : Members) (names : List String) : Option (Option Json) :=
  match members.filter fun m => names.contains m.1 with
  | [] => some none
  | [m] => some (some m.2)
  | _ => none

variable {α : Type} [Saved α]

/-- The value of a member that must be there, under any of some names. -/
def field? (members : Members) (names : List String) : Option α := do
  let found ← members.find? names
  let value ← found
  load? value

/-- The value of a member, or a default when it is missing. -/
def fieldOr? (members : Members) (name : String) (missing : α) : Option α := do
  match ← members.find? [name] with
  | some value => load? value
  | none => some missing

end Members

end Json

instance : Saved Json where
  save := id
  load? := some

instance : Saved String where
  save := .str
  load?
    | .str s => some s
    | _ => none

instance : Saved UInt32 where
  save n := .int n.toNat
  load?
    | .int n => if 0 ≤ n ∧ n < UInt32.size then some (UInt32.ofNat n.toNat) else none
    | _ => none

instance : Saved UInt64 where
  save n := .int n.toNat
  load?
    | .int n => if 0 ≤ n ∧ n < UInt64.size then some (UInt64.ofNat n.toNat) else none
    | _ => none

/-- A float that is not finite is saved as null. Integers are loaded as the nearest float. -/
instance : Saved Float32 where
  save x := if x.isFinite then .real x else .null
  load?
    | .real x => some x
    | .int n =>
      some (if n < 0 then (Int64.ofInt n).toFloat32 else (UInt64.ofNat n.toNat).toFloat32)
    | _ => none

instance {α : Type} [Saved α] : Saved (Option α) where
  save
    | some a => save a
    | none => .null
  load?
    | .null => some none
    | j => (load? j).map some

instance {α : Type} [Saved α] : Saved (List α) where
  save as := .arr (as.map save)
  load? j := do
    let items ← j.items?
    items.mapM load?

/-- A table is saved as an object. Of two members with one name the later counts. -/
instance {α : Type} [Saved α] : Saved (Table α) where
  save t := .obj (t.entries.map fun e => (e.1, save e.2))
  load? j := do
    let members ← j.members?
    let entries ← members.mapM fun m => (load? m.2).map fun a => (m.1, a)
    return .ofList entries

end Dialogue
