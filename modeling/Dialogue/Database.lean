import Dialogue.Content

/-! # Databases

Lookups that answer a question from what is commonly agreed.
-/

namespace Dialogue

/-- A lookup from a question and the commitments, most recent first. -/
structure Database where
  consult : Question → List Proposition → Option Proposition

def factArgument (commitments : List Proposition) (predicate : String) : Option String :=
  (commitments.find? fun p => p.predicate == predicate).map (·.argument)

/-- An answer to a question, given once certain facts are agreed. -/
structure Row where
  question : Question
  requires : List Proposition
  answer : Proposition

def Row.applies (r : Row) (q : Question) (commitments : List Proposition) : Bool :=
  r.question == q && r.requires.all fun p => factArgument commitments p.predicate == some p.argument

/-- The database that answers by the first row that applies. -/
def Database.ofRows (rows : List Row) : Database where
  consult q commitments := (rows.find? (·.applies q commitments)).map (·.answer)

end Dialogue
