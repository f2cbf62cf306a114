import Dialogue.Update.Rule

/-! # Pursuit

Closing questions that are resolved and working through the plan.
-/

namespace Dialogue.Update

def downdateQud : Rule where
  name := "downdate_qud"
  tier := .downdate
  effect c := do
    let q ← c.qudTop?
    if c.state.isResolved q then some [.popQud] else none

/-- A belief not yet shared that answers the question. -/
def answerable? (s : InformationState) (q : Question) : Option Proposition :=
  s.unsharedBeliefs.find? (·.resolves q)

/-- Loads the plan for a question to respond to that no belief answers yet. -/
def findPlan : Rule where
  name := "find_plan"
  tier := .execPlan
  effect c :=
    match c.state.own.agenda with
    | .respond q :: _ =>
      if (answerable? c.state q).isSome then none
      else (c.domain.issuePlan? q).map fun p => [.popAgenda, .installPlan p.steps]
    | _ => none

def removeFindout : Rule where
  name := "remove_findout"
  tier := .execPlan
  effect c :=
    match c.state.own.plan with
    | .findout q :: _ => if c.state.isResolved q then some [.popPlan] else none
    | _ => none

/-- Looks up an answer. A lookup without one stays on the plan until more is agreed. -/
def execConsult : Rule where
  name := "exec_consultDB"
  tier := .execPlan
  effect c :=
    match c.state.own.plan with
    | .consult q :: _ =>
      (c.database.consult q c.state.shared.com).map fun p => [.popPlan, .addBelief p]
    | _ => none

end Dialogue.Update
