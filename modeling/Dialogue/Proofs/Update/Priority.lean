import Dialogue.Proofs.Update.Firing

/-! # Priority

A rule of the default table fires only when no rule before it applies. Most rules do not read the
agenda, so a change of the agenda alone makes none of them apply.
-/

namespace Dialogue.Engine

open Update

variable {e : Engine} {input : TurnInput} {s : InformationState} {r r' : Rule}
  {deltas : List Delta}

/-- The rules before `r` in the default table. -/
def rulesBefore (r : Rule) : List Rule :=
  defaultRules.takeWhile fun r' => r'.name != r.name

theorem name_ne_of_mem_rulesBefore (h : r' ∈ rulesBefore r) : r'.name ≠ r.name := by
  have hName := List.all_eq_true.mp List.all_takeWhile r' h
  simpa using hName

theorem effect_eq_none_of_mem_rulesBefore (hRules : e.rules = defaultRules)
    (h : e.applicable? input s = some (r, deltas)) (hBefore : r' ∈ rulesBefore r) :
    r'.effect (e.context input s) = none := by
  have hSplit : rulesBefore r ++ defaultRules.dropWhile (fun r' => r'.name != r.name) =
    defaultRules := List.takeWhile_append_dropWhile
  rw [applicable?, scan_snd, hRules, ← hSplit, List.findSome?_append] at h
  cases hHit : (rulesBefore r).findSome? fun r' => (r'.effect (e.context input s)).map (r', ·) with
  | none => simpa using List.findSome?_eq_none_iff.mp hHit r' hBefore
  | some hit =>
    rw [hHit] at h
    cases h
    obtain ⟨r'', hMem, hEffect⟩ := List.exists_of_findSome?_eq_some hHit
    obtain ⟨_, _, hEq⟩ := Option.map_eq_some_iff.mp hEffect
    cases hEq
    exact absurd rfl (name_ne_of_mem_rulesBefore hMem)

theorem applicable?_of_rulesBefore (hRules : e.rules = defaultRules) {after : List Rule}
    (hTable : defaultRules = rulesBefore r ++ r :: after)
    (hBefore : ∀ r' ∈ rulesBefore r, r'.effect (e.context input s) = none)
    (hEffect : r.effect (e.context input s) = some deltas) :
    e.applicable? input s = some (r, deltas) :=
  applicable?_eq_some_iff.mpr ⟨hEffect, rulesBefore r, after, hRules.trans hTable, hBefore⟩

/-- The rules that read the agenda of the state. -/
def agendaRules : List Rule :=
  [clearAgenda, findPlan, selectFromPlan, selectAsk, selectRespond, selectAnswer, selectOther]

theorem effect_agenda (hRule : r ∈ defaultRules) (hBlind : r.name ∉ agendaRules.map (·.name))
    (agenda : List Action) (version : UInt64) :
    r.effect (e.context input { s with own.agenda := agenda, version := version }) =
      r.effect (e.context input s) := by
  cases hRule using defaultRules_cases with
  | _ => first | rfl | exact absurd (by decide) hBlind

theorem mem_rulesBefore_selectFromPlan (hRule : r ∈ defaultRules)
    (hBlind : r.name ∉ agendaRules.map (·.name)) : r ∈ rulesBefore selectFromPlan := by
  have hTable : defaultRules = rulesBefore selectFromPlan ++
    [selectFromPlan, selectAsk, selectRespond, selectAnswer, selectOther] := rfl
  rw [hTable, List.mem_append] at hRule
  refine hRule.resolve_right fun hSelect => hBlind ?_
  exact List.mem_map_of_mem (List.mem_cons_of_mem _ (List.mem_cons_of_mem _ hSelect))

theorem mem_rulesBefore_selectRespond (h : r ∈ rulesBefore selectFromPlan) :
    r ∈ rulesBefore selectRespond :=
  List.mem_append_left [selectFromPlan, selectAsk] h

/-- When selection changes the agenda alone, only rules that read the agenda can fire next. -/
theorem name_mem_agendaRules (hRules : e.rules = defaultRules)
    (h : e.applicable? input s = some (r, deltas))
    (hSelect : r = selectFromPlan ∨ r = selectRespond)
    {agenda : List Action} {version : UInt64} {deltas' : List Delta}
    (h' : e.applicable? input { s with own.agenda := agenda, version := version } =
      some (r', deltas')) : r'.name ∈ agendaRules.map (·.name) := by
  refine Decidable.byContradiction fun hBlind => ?_
  have hRule : r' ∈ defaultRules := hRules ▸ mem_rules_of_applicable? h'
  have hBefore : r' ∈ rulesBefore r := by
    have hFromPlan := mem_rulesBefore_selectFromPlan hRule hBlind
    rcases hSelect with rfl | rfl
    · exact hFromPlan
    · exact mem_rulesBefore_selectRespond hFromPlan
  have hEffect := (applicable?_eq_some_iff.mp h').1
  rw [effect_agenda hRule hBlind, effect_eq_none_of_mem_rulesBefore hRules h hBefore] at hEffect
  cases hEffect

end Dialogue.Engine
