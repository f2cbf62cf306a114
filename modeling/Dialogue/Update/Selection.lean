import Dialogue.Update.Pursuit

/-! # Selection

Choosing the next action and turning it into a move.
-/

namespace Dialogue.Update

/-- Copies the next step of the plan to the empty agenda. Lookups run from the plan alone. -/
def selectFromPlan : Rule where
  name := "select_from_plan"
  tier := .select
  effect c :=
    if c.maySelect && c.state.own.agenda.isEmpty then
      match c.state.own.plan with
      | [] | .consult _ :: _ => none
      | a :: _ => some [.pushAgenda a]
    else none

/-- Whether the plan is at a step that asks without waiting. -/
def planRaises (plan : Stack Action) : Bool :=
  match plan with
  | .raise _ :: _ => true
  | _ => false

def selectAsk : Rule where
  name := "select_ask"
  tier := .select
  effect c :=
    if c.maySelect then
      match c.state.own.agenda with
      | .findout q :: _ | .raise q :: _ =>
        some ([.emit ⟨.ask q, none⟩, .popAgenda, .markSelected] ++
          if planRaises c.state.own.plan then [.popPlan] else [])
      | _ => none
    else none

/-- With nothing else to do, takes up the question on top if a belief answers it. -/
def selectRespond : Rule where
  name := "select_respond"
  tier := .select
  effect c :=
    if c.maySelect && c.state.own.agenda.isEmpty && c.state.own.plan.isEmpty then do
      let q ← c.qudTop?
      if (answerable? c.state q).isSome then some [.pushAgenda (.respond q)] else none
    else none

def selectAnswer : Rule where
  name := "select_answer"
  tier := .select
  effect c :=
    if c.maySelect then
      match c.state.own.agenda with
      | .respond q :: _ => (answerable? c.state q).map fun b =>
        [.emit ⟨.answer (.full b), none⟩, .popAgenda, .markSelected]
      | _ => none
    else none

def selectOther : Rule where
  name := "select_other"
  tier := .select
  effect c :=
    if c.maySelect then
      match c.state.own.agenda with
      | .greet :: _ => some [.emit ⟨.greet, none⟩, .popAgenda, .markSelected]
      | _ => none
    else none

end Dialogue.Update
