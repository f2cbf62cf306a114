/-! # Saved values

The values that dialogues, domains and settings are saved as. The only fractional numbers among
them are confidences and thresholds, so a fraction is a 32-bit float.
-/

namespace Dialogue

/-- A value with the members of its objects in the order written, repeated names included. -/
inductive Json where
  | null
  | bool (b : Bool)
  /-- A number written without point and exponent that fits into 64 bits. -/
  | int (n : Int)
  | real (x : Float32)
  | str (s : String)
  | arr (items : List Json)
  | obj (members : List (String × Json))
  /-- Something well written that stands for no value: a number beyond every float, a text with
  half a surrogate pair, or a container nested too deep. It may be skipped but not read. -/
  | unreadable

namespace Json

mutual

/-- Whether nothing unreadable occurs in the value. -/
def readable : Json → Bool
  | null => true
  | bool _ => true
  | int _ => true
  | real _ => true
  | str _ => true
  | arr items => readableItems items
  | obj members => readableMembers members
  | unreadable => false

def readableItems : List Json → Bool
  | [] => true
  | item :: rest => item.readable && readableItems rest

def readableMembers : List (String × Json) → Bool
  | [] => true
  | (_, value) :: rest => value.readable && readableMembers rest

end

@[simp] theorem readable_arr (items : List Json) :
    (arr items).readable = items.all readable := by
  rw [readable]
  induction items with
  | nil => rfl
  | cons item rest ih => rw [readableItems, ih, List.all_cons]

@[simp] theorem readable_obj (members : List (String × Json)) :
    (obj members).readable = members.all (·.2.readable) := by
  rw [readable]
  induction members with
  | nil => rfl
  | cons m rest ih => rw [readableMembers, ih, List.all_cons]

end Json

end Dialogue
