import Mathlib.Data.List.Basic
import Dialogue.Cycle

/-! # Traces of a cycle

A trace lists the rules that fire on the way from one state of a cycle to another. A cycle returns
exactly when some trace no longer than the ceiling ends in a settled state.
-/

namespace Dialogue.Engine

variable {e : Engine} {input : TurnInput} {s t u : InformationState} {r : Rule}
  {deltas : List Delta} {rs rs' : List Rule}

def IsSettled (e : Engine) (input : TurnInput) (s : InformationState) : Prop :=
  e.applicable? input s = none

inductive Trace (e : Engine) (input : TurnInput) :
    InformationState → List Rule → InformationState → Prop where
  | done (s : InformationState) : Trace e input s [] s
  | fire {s t : InformationState} {r : Rule} {deltas : List Delta} {rs : List Rule} :
      e.applicable? input s = some (r, deltas) → Trace e input (s.apply deltas) rs t →
      Trace e input s (r :: rs) t

theorem isSettled_iff :
    e.IsSettled input s ↔ ∀ r ∈ e.rules, r.effect (e.context input s) = none := by
  rw [IsSettled, applicable?, scan_snd, List.findSome?_eq_none_iff]
  simp

theorem applicable?_eq_some_iff : e.applicable? input s = some (r, deltas) ↔
    r.effect (e.context input s) = some deltas ∧ ∃ before after, e.rules = before ++ r :: after ∧
      ∀ r' ∈ before, r'.effect (e.context input s) = none := by
  rw [applicable?, scan_snd, List.findSome?_eq_some_iff]
  constructor
  · rintro ⟨before, r', after, hRules, hEffect, hBefore⟩
    obtain ⟨deltas', hDeltas, hEq⟩ := Option.map_eq_some_iff.mp hEffect
    cases hEq
    exact ⟨hDeltas, before, after, hRules, fun r' h => by simpa using hBefore r' h⟩
  · rintro ⟨hEffect, before, after, hRules, hBefore⟩
    exact ⟨before, r, after, hRules, by simp [hEffect], fun r' h => by simp [hBefore r' h]⟩

theorem applicable?_congr {input' : TurnInput} {s' : InformationState}
    (h : ∀ r ∈ e.rules, r.effect (e.context input' s') = r.effect (e.context input s)) :
    e.applicable? input' s' = e.applicable? input s := by
  rw [applicable?, applicable?, scan_snd, scan_snd, ← List.head?_filterMap, ← List.head?_filterMap]
  exact congrArg List.head? (List.filterMap_congr fun r hRule => by rw [h r hRule])

theorem mem_rules_of_applicable? (h : e.applicable? input s = some (r, deltas)) : r ∈ e.rules := by
  obtain ⟨_, before, after, hTable, _⟩ := applicable?_eq_some_iff.mp h
  rw [hTable]
  exact List.mem_append_right _ List.mem_cons_self

namespace Trace

theorem append (h : e.Trace input s rs t) (h' : e.Trace input t rs' u) :
    e.Trace input s (rs ++ rs') u := by
  induction h with
  | done s => exact h'
  | fire hFires _ ih => exact .fire hFires (ih h')

theorem exists_of_append (h : e.Trace input s (rs ++ rs') u) :
    ∃ t, e.Trace input s rs t ∧ e.Trace input t rs' u := by
  induction rs generalizing s with
  | nil => exact ⟨s, .done s, h⟩
  | cons r rs ih =>
    cases h with
    | fire hHit hRest =>
      obtain ⟨t, hBefore, hAfter⟩ := ih hRest
      exact ⟨t, .fire hHit hBefore, hAfter⟩

theorem eq_of_isSettled (h : e.Trace input s rs t) (hSettled : e.IsSettled input t)
    (h' : e.Trace input s rs' u) (hSettled' : e.IsSettled input u) : rs = rs' ∧ t = u := by
  induction h generalizing rs' with
  | done s =>
    cases h' with
    | done => exact ⟨rfl, rfl⟩
    | fire hFires _ =>
      rw [IsSettled, hFires] at hSettled
      cases hSettled
  | fire hFires _ ih =>
    cases h' with
    | done =>
      rw [IsSettled, hFires] at hSettled'
      cases hSettled'
    | fire hFires' hRest =>
      rw [hFires] at hFires'
      cases hFires'
      obtain ⟨hRules, hEnd⟩ := ih hSettled hRest
      exact ⟨by rw [hRules], hEnd⟩

end Trace

theorem settle_outcome_of_trace (h : e.Trace input s rs t) (hSettled : e.IsSettled input t)
    {allowed : Nat} (hLength : rs.length ≤ allowed) (fired : Nat) :
    (e.settle input allowed fired s).outcome = .ok t.endTurn := by
  induction h generalizing allowed fired with
  | done s => exact settle_outcome_of_none hSettled allowed fired
  | fire hFires _ ih =>
    cases allowed with
    | zero => simp at hLength
    | succ allowed =>
      rw [settle_outcome_succ hFires]
      exact ih hSettled (by simpa using hLength) (fired + 1)

theorem settle_outcome_eq_ok_iff {allowed fired : Nat} :
    (e.settle input allowed fired s).outcome = .ok u ↔
      ∃ rs t, e.Trace input s rs t ∧ e.IsSettled input t ∧ rs.length ≤ allowed ∧ u = t.endTurn := by
  constructor
  · intro h
    induction allowed using Nat.strongRecOn generalizing fired s with
    | _ allowed ih =>
      cases hHit : e.applicable? input s with
      | none =>
        rw [settle_outcome_of_none hHit] at h
        exact ⟨[], s, .done s, hHit, Nat.zero_le _, (Except.ok.inj h).symm⟩
      | some hit =>
        obtain ⟨r, deltas⟩ := hit
        cases allowed with
        | zero =>
          rw [settle_outcome_zero hHit] at h
          cases h
        | succ allowed =>
          rw [settle_outcome_succ hHit] at h
          obtain ⟨rs, t, hTrace, hSettled, hLength, hEnd⟩ := ih allowed (Nat.lt_succ_self _) h
          exact ⟨r :: rs, t, .fire hHit hTrace, hSettled, Nat.succ_le_succ hLength, hEnd⟩
  · rintro ⟨rs, t, hTrace, hSettled, hLength, rfl⟩
    exact settle_outcome_of_trace hTrace hSettled hLength fired

theorem run_outcome_eq_ok_iff : (e.run s input).outcome = .ok u ↔
    ∃ rs t, e.Trace input s.beginTurn rs t ∧ e.IsSettled input t ∧
      rs.length ≤ e.config.maxFirings.toNat ∧ u = t.endTurn :=
  settle_outcome_eq_ok_iff

end Dialogue.Engine
