import Dialogue.Lecture.Task
import Dialogue.Text.Casing

/-! # Speech

The text that outgoing moves are spoken as.
-/

namespace Dialogue.Lecture

def greeting : String := "Hello! You can ask me anything!"
def nothingHeard : String := "I didn't hear anything from you."
def misunderstood : String := "Sorry, I didn't understand."

/-- A predicate as words. -/
def spoken (predicate : String) : String :=
  String.ofList (predicate.toList.map fun c => if c = '_' then ' ' else c)

def questionText (q : Question) : String :=
  if q.predicate = bookingDay then "Which day?"
  else if q.predicate = bookingCourse then "Which course?"
  else if q.predicate = bookingRoom then "Where is the lecture?"
  else if q.predicate = favoriteFood then "What's your favorite food?"
  else "What is the " ++ spoken q.predicate ++ "?"

def factText (p : Proposition) : String :=
  if p.predicate = favoriteFood then Text.capitalize p.argument ++ "."
  else if p.predicate = bookingRoom then "The lecture is in " ++ p.argument ++ "."
  else if p.predicate = bookingDay then "Let's say " ++ Text.capitalize p.argument ++ "."
  else if p.predicate = bookingCourse ∧ p.argument = course then "Let's say Dialogue Systems 2."
  else spoken p.predicate ++ ": " ++ p.argument ++ "."

def moveText (m : Move) : String :=
  match m.act with
  | .greet => greeting
  | .noInput => nothingHeard
  | .ask q => questionText q
  | .answer (.full p) => factText p
  | .answer (.short individual) => Text.capitalize individual ++ "."
  | .inform text | .acknowledge text => text
  | .request _ => ""

/-- The texts of the moves with a space between them. Moves without text leave no gap. -/
def joined (moves : List Move) : String :=
  " ".intercalate ((moves.map moveText).filter (· ≠ ""))

/-- The text of a reply. When nothing was heard and a question is asked again, nothing else is
said. -/
def realize (moves : List Move) : String :=
  match moves.any (·.isNoInput), moves.findSome? Move.asked? with
  | true, some q => nothingHeard ++ " " ++ questionText q
  | _, _ => joined moves

end Dialogue.Lecture
