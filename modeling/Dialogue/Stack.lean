/-! # Stacks

A stack is the list of its items, head first.
-/

namespace Dialogue

abbrev Stack (α : Type) := List α

namespace Stack

variable {α : Type}

def push (s : Stack α) (item : α) : Stack α :=
  item :: s

/-- The items on top of the stack in their own order: the first becomes the head. -/
def pushAll (s : Stack α) (items : List α) : Stack α :=
  items ++ s

/-- The stack without its head; an empty one stays empty. -/
def pop (s : Stack α) : Stack α :=
  s.tail

@[simp] theorem push_eq (s : Stack α) (item : α) : s.push item = item :: s := rfl

@[simp] theorem pushAll_eq (s : Stack α) (items : List α) : s.pushAll items = items ++ s := rfl

@[simp] theorem pop_nil : Stack.pop ([] : List α) = [] := rfl

@[simp] theorem pop_cons (item : α) (s : List α) : Stack.pop (item :: s) = s := rfl

end Stack

end Dialogue
