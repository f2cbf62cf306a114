import Dialogue.Update.Feedback
import Dialogue.Update.Selection
import Dialogue.Update.Uptake

/-! # The rule table

Rules in order of priority. Earlier rules go first.
-/

namespace Dialogue.Update

def defaultRules : List Rule :=
  [clearAgenda, getLatestMove, integrateUsrRequest, integrateSysAsk, integrateUsrAsk,
   integrateAnswer, integrateGreet, integrateNoInput, integrateLowConfidence,
   integratePartialUnderstanding, integratePositiveGrounding, downdateQud, findPlan, removeFindout,
   execConsult, selectFromPlan, selectAsk, selectRespond, selectAnswer, selectOther]

theorem defaultRules_cases {motive : (r : Rule) → r ∈ defaultRules → Prop}
    (clearAgenda : motive clearAgenda (by simp [defaultRules]))
    (getLatestMove : motive getLatestMove (by simp [defaultRules]))
    (integrateUsrRequest : motive integrateUsrRequest (by simp [defaultRules]))
    (integrateSysAsk : motive integrateSysAsk (by simp [defaultRules]))
    (integrateUsrAsk : motive integrateUsrAsk (by simp [defaultRules]))
    (integrateAnswer : motive integrateAnswer (by simp [defaultRules]))
    (integrateGreet : motive integrateGreet (by simp [defaultRules]))
    (integrateNoInput : motive integrateNoInput (by simp [defaultRules]))
    (integrateLowConfidence : motive integrateLowConfidence (by simp [defaultRules]))
    (integratePartialUnderstanding :
      motive integratePartialUnderstanding (by simp [defaultRules]))
    (integratePositiveGrounding : motive integratePositiveGrounding (by simp [defaultRules]))
    (downdateQud : motive downdateQud (by simp [defaultRules]))
    (findPlan : motive findPlan (by simp [defaultRules]))
    (removeFindout : motive removeFindout (by simp [defaultRules]))
    (execConsult : motive execConsult (by simp [defaultRules]))
    (selectFromPlan : motive selectFromPlan (by simp [defaultRules]))
    (selectAsk : motive selectAsk (by simp [defaultRules]))
    (selectRespond : motive selectRespond (by simp [defaultRules]))
    (selectAnswer : motive selectAnswer (by simp [defaultRules]))
    (selectOther : motive selectOther (by simp [defaultRules]))
    {r : Rule} (hRule : r ∈ defaultRules) : motive r hRule := by
  have hCases := hRule
  simp only [defaultRules, List.mem_cons, List.not_mem_nil, or_false] at hCases
  rcases hCases with rfl | rfl | rfl | rfl | rfl | rfl | rfl | rfl | rfl | rfl | rfl | rfl | rfl |
    rfl | rfl | rfl | rfl | rfl | rfl | rfl
  all_goals assumption

/-- A rule that always applies and changes nothing. A table with it never settles. -/
def spin : Rule where
  name := "spin"
  tier := .select
  effect _ := some []

def ruleNamed? (name : String) : Option Rule :=
  (defaultRules ++ [spin]).find? fun r => r.name == name

end Dialogue.Update
