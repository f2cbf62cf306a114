import Dialogue.Telemetry.Event

/-! # Event buffers

A bounded queue of events that lets go of the oldest one to take in a new one when full. It is seen
as the list of its events, oldest first.
-/

namespace Dialogue

/-- A queue in two halves, so that both ends are at hand. -/
structure Buffer where
  /-- The older half, oldest first. -/
  older : List Event := []
  /-- The newer half, newest first. -/
  newer : List Event := []
  size : Nat := 0
  size_eq : size = older.length + newer.length := by rfl

namespace Buffer

def empty : Buffer := {}

def capacity : Nat := 10000

/-- Oldest first. -/
def toList (b : Buffer) : List Event :=
  b.older ++ b.newer.reverse

theorem length_toList (b : Buffer) : b.toList.length = b.size := by
  simp [toList, b.size_eq]

def dropOldest (b : Buffer) : Buffer :=
  match h : b.older with
  | _ :: older =>
    { older, newer := b.newer, size := b.size - 1, size_eq := by
        rw [b.size_eq, h, List.length_cons]; omega }
  | [] =>
    { older := b.newer.reverse.tail, newer := [], size := b.size - 1, size_eq := by
        rw [b.size_eq, h]; simp }

@[simp] theorem toList_dropOldest (b : Buffer) : b.dropOldest.toList = b.toList.tail := by
  unfold dropOldest
  split
  · next h => simp [toList, h]
  · next h => simp [toList, h]

def push (b : Buffer) (event : Event) : Buffer where
  older := b.older
  newer := event :: b.newer
  size := b.size + 1
  size_eq := by rw [b.size_eq, List.length_cons]; omega

@[simp] theorem toList_push (b : Buffer) (event : Event) :
    (b.push event).toList = b.toList ++ [event] := by
  simp [toList, push]

def record (b : Buffer) (event : Event) : Buffer :=
  if capacity ≤ b.size then b.dropOldest.push event else b.push event

theorem toList_record (b : Buffer) (event : Event) :
    (b.record event).toList =
      (if capacity ≤ b.toList.length then b.toList.tail else b.toList) ++ [event] := by
  rw [record, length_toList]
  split <;> simp

end Buffer

end Dialogue
