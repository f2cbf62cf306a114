import Dialogue.Content

/-! # Plans

The steps by which the system settles an issue or carries out a request.
-/

namespace Dialogue

inductive Action where
  | greet
  /-- Answer the question. It arises in dialogue and is no step of a plan. -/
  | respond (q : Question)
  /-- Ask the question once, without waiting for its answer. -/
  | raise (q : Question)
  /-- Ask the question until it is resolved. -/
  | findout (q : Question)
  /-- Look up an answer to the question. -/
  | consult (q : Question)
  deriving DecidableEq

namespace Action

def question? : Action → Option Question
  | greet => none
  | respond q | raise q | findout q | consult q => some q

def name : Action → String
  | greet => "greet"
  | respond _ => "respond"
  | raise _ => "raise"
  | findout _ => "findout"
  | consult _ => "consultDB"

def isRespond : Action → Bool
  | respond _ => true
  | _ => false

end Action

/-- An issue plan resolves a question, an action plan carries out a request. -/
inductive PlanKind where
  | action
  | issue
  deriving DecidableEq

/-- What a plan is for. -/
inductive Goal where
  | question (q : Question)
  | proposition (p : Proposition)
  | name (s : String)
  deriving DecidableEq

structure Plan where
  kind : PlanKind
  goal : Option Goal
  steps : List Action
  deriving DecidableEq

namespace Plan

def issue (q : Question) (steps : List Action) : Plan where
  kind := .issue
  goal := some (.question q)
  steps := steps

def action (name : String) (steps : List Action) : Plan where
  kind := .action
  goal := some (.name name)
  steps := steps

def goalQuestion? (p : Plan) : Option Question :=
  match p.goal with
  | some (.question q) => some q
  | _ => none

/-- The questions a plan speaks of: its goal, then its steps in order. -/
def questions (p : Plan) : List Question :=
  p.goalQuestion?.toList ++ p.steps.filterMap Action.question?

def issue? (p : Plan) : Option Question :=
  match p.kind with
  | .issue => p.goalQuestion?
  | .action => none

def request? (p : Plan) : Option String :=
  match p.kind, p.goal with
  | .action, some (.name s) => some s
  | _, _ => none

end Plan

end Dialogue
