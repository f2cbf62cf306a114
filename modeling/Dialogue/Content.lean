/-! # Content

What dialogues are about: open questions, facts, and answers that turn a question into a fact.
-/

namespace Dialogue

/-- The question which individual a predicate holds of. -/
structure Question where
  predicate : String
  deriving DecidableEq

/-- A fact: the predicate holds of the individual named by the argument. -/
structure Proposition where
  predicate : String
  argument : String
  deriving DecidableEq

/-- A whole proposition, or only the name of an individual. -/
inductive Answer where
  | full (p : Proposition)
  | short (individual : String)
  deriving DecidableEq

def Question.formula (q : Question) : String :=
  "?x." ++ q.predicate ++ "(x)"

def Proposition.formula (p : Proposition) : String :=
  p.predicate ++ "(" ++ p.argument ++ ")"

/-- A fact resolves a question when it is on the predicate asked about. A belief that would resolve
a question is an answer to it. -/
def Proposition.resolves (p : Proposition) (q : Question) : Bool :=
  p.predicate == q.predicate

@[simp] theorem Proposition.resolves_iff {p : Proposition} {q : Question} :
    p.resolves q ↔ p.predicate = q.predicate :=
  beq_iff_eq

def Answer.individual : Answer → String
  | full p => p.argument
  | short individual => individual

def Question.combine (q : Question) (a : Answer) : Proposition where
  predicate := q.predicate
  argument := a.individual

theorem Question.combine_resolves (q : Question) (a : Answer) : (q.combine a).resolves q :=
  beq_self_eq_true q.predicate

end Dialogue
