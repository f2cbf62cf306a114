import Dialogue.Proofs.Cycle.Trace

/-! # The log of a cycle

The log of a cycle tells which rules fired and in which order. In a cycle that returns they are the
ones that lead to where it settles.
-/

namespace Dialogue

def Notice.firedRule? : Notice → Option Rule
  | .fired rule _ _ _ => some rule
  | _ => none

def CycleResult.fired (c : CycleResult) : List Rule :=
  c.log.filterMap Notice.firedRule?

namespace Engine

variable {e : Engine} {input : TurnInput} {s t u : InformationState} {r : Rule}
  {deltas : List Delta} {rs : List Rule}

theorem scan_congr {c c' : Context} {rules : List Rule}
    (h : ∀ r ∈ rules, r.effect c' = r.effect c) : scan c' rules = scan c rules := by
  induction rules with
  | nil => rfl
  | cons r rest ih =>
    rw [scan, scan, h r List.mem_cons_self, ih fun r hRule => h r (List.mem_cons_of_mem _ hRule)]

theorem filterMap_firedRule?_scan (c : Context) (rules : List Rule) :
    (scan c rules).1.filterMap Notice.firedRule? = [] := by
  induction rules with
  | nil => rfl
  | cons r rest ih =>
    rw [scan]
    cases r.effect c with
    | some deltas => rfl
    | none => exact ih

theorem settle_fired_of_none (h : e.applicable? input s = none) (allowed fired : Nat) :
    (e.settle input allowed fired s).fired = [] := by
  rw [settle_eq, h]
  simp [CycleResult.fired, filterMap_firedRule?_scan, Notice.firedRule?]

theorem settle_fired_succ (h : e.applicable? input s = some (r, deltas)) (allowed fired : Nat) :
    (e.settle input (allowed + 1) fired s).fired =
      r :: (e.settle input allowed (fired + 1) (s.apply deltas)).fired := by
  rw [settle_eq, h]
  simp [CycleResult.fired, filterMap_firedRule?_scan, Notice.firedRule?]

theorem settle_fired_of_trace (h : e.Trace input s rs t) (hSettled : e.IsSettled input t)
    {allowed : Nat} (hLength : rs.length ≤ allowed) (fired : Nat) :
    (e.settle input allowed fired s).fired = rs := by
  induction h generalizing allowed fired with
  | done s => exact settle_fired_of_none hSettled allowed fired
  | fire hHit _ ih =>
    cases allowed with
    | zero => simp at hLength
    | succ allowed =>
      rw [settle_fired_succ hHit, ih hSettled (by simpa using hLength)]

theorem exists_trace_of_run (h : (e.run s input).outcome = .ok u) :
    ∃ t, e.Trace input s.beginTurn (e.run s input).fired t ∧ e.IsSettled input t ∧
      u = t.endTurn := by
  obtain ⟨rs, t, hTrace, hSettled, hLength, hEnd⟩ := run_outcome_eq_ok_iff.mp h
  refine ⟨t, ?_, hSettled, hEnd⟩
  rwa [run, settle_fired_of_trace hTrace hSettled hLength]

theorem run_of_isSettled (h : e.IsSettled input s.beginTurn) :
    (e.run s input).outcome = .ok s.beginTurn.endTurn ∧ (e.run s input).fired = [] := by
  constructor
  · exact settle_outcome_of_none h _ _
  · exact settle_fired_of_none h _ _

end Engine

end Dialogue
