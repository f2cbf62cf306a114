import Dialogue.Proofs.Cycle.Acknowledging
import Dialogue.Proofs.Cycle.Counting
import Dialogue.Proofs.Cycle.Log

/-! # What a cycle sees

The rules read the latest utterance only once the cycle has latched it, and never the version. So
cycles that see the same in the states they start from do the same, and leave the same to be seen.
-/

namespace Dialogue

open Update

namespace InformationState

variable {s t : InformationState}

/-- What the rules can tell of a state. -/
def visible (s : InformationState) : InformationState :=
  { s with shared.lu := s.latched?, version := 0 }

theorem visible_reduce (s : InformationState) (delta : Delta) :
    (s.visible.reduce delta).visible = (s.reduce delta).visible := by
  cases hMark : s.turn.latched with
  | _ => cases delta with
    | _ => simp [visible, reduce, latched?, hMark]

theorem visible_apply (h : s.visible = t.visible) (deltas : List Delta) :
    (s.apply deltas).visible = (t.apply deltas).visible :=
  foldl_reduce_congr visible_reduce h deltas

theorem visible_endTurn (h : s.visible = t.visible) : s.endTurn.visible = t.endTurn.visible := by
  have hEnd (s : InformationState) : s.visible.endTurn.visible = s.endTurn.visible := rfl
  rw [← hEnd, h, hEnd]

end InformationState

/-- What the rules can tell of the states in a notice. -/
def Notice.visible : Notice → Notice
  | .evaluated rule matched => .evaluated rule matched
  | .fired rule iteration before after => .fired rule iteration before.visible after.visible
  | .completed input firings state => .completed input firings state.visible

theorem Notice.firedRule?_visible (n : Notice) : n.visible.firedRule? = n.firedRule? := by
  cases n with
  | _ => rfl

namespace CycleResult

def visible (c : CycleResult) : CycleResult where
  log := c.log.map Notice.visible
  outcome := c.outcome.map InformationState.visible

theorem fired_visible (c : CycleResult) : c.visible.fired = c.fired := by
  rw [fired, visible, List.filterMap_map]
  exact List.filterMap_congr fun n _ => n.firedRule?_visible

end CycleResult

namespace Engine

variable {e : Engine} {input : TurnInput} {s t u v : InformationState} {r : Rule}

theorem effect_visible (hRule : r ∈ defaultRules) (s : InformationState) :
    r.effect (e.context input s.visible) = r.effect (e.context input s) := by
  obtain ⟨own, ⟨lu, qud, com⟩, moves, version, turn⟩ := s
  obtain ⟨latched, consumed, grounded, acknowledged, selected⟩ := turn
  cases hRule using defaultRules_cases with
  | _ =>
    cases latched with
    | _ => rfl

theorem scan_of_visible (hRules : e.rules = defaultRules) (h : s.visible = t.visible) :
    scan (e.context input s) e.rules = scan (e.context input t) e.rules := by
  apply scan_congr
  intro r hRule
  rw [← effect_visible (hRules ▸ hRule), h, effect_visible (hRules ▸ hRule)]

theorem settle_visible (hRules : e.rules = defaultRules) (h : s.visible = t.visible)
    (allowed fired : Nat) :
    (e.settle input allowed fired s).visible = (e.settle input allowed fired t).visible := by
  have hEnd := InformationState.visible_endTurn h
  induction allowed generalizing s t fired with
  | zero =>
    rw [settle_eq, settle_eq, applicable?, applicable?, scan_of_visible hRules h]
    rcases scan (e.context input t) e.rules with ⟨seen, _ | ⟨r, deltas⟩⟩
    · simp [CycleResult.visible, Notice.visible, Except.map, hEnd]
    · rfl
  | succ allowed ih =>
    rw [settle_eq, settle_eq, applicable?, applicable?, scan_of_visible hRules h]
    rcases scan (e.context input t) e.rules with ⟨seen, _ | ⟨r, deltas⟩⟩
    · simp [CycleResult.visible, Notice.visible, Except.map, hEnd]
    · have hNext := InformationState.visible_apply h deltas
      have hRest := ih hNext (fired + 1) (InformationState.visible_endTurn hNext)
      have hLog := congrArg CycleResult.log hRest
      have hOutcome := congrArg CycleResult.outcome hRest
      simp only [CycleResult.visible] at hLog hOutcome
      simp [CycleResult.visible, Notice.visible, h, hNext, hLog, hOutcome]

theorem Alike.beginTurn_visible (h : Alike s t) : s.beginTurn.visible = t.beginTurn.visible := by
  simp [InformationState.visible, InformationState.beginTurn, InformationState.latched?, h.own,
    h.qud, h.com]

theorem Alike.of_visible (h : s.visible = t.visible) : Alike s t :=
  ⟨congrArg (·.own) h, congrArg (·.shared.qud) h, congrArg (·.shared.com) h⟩

/-- All that one can see of a cycle is settled by what lasts from one cycle to the next. -/
theorem run_visible (hRules : e.rules = defaultRules) (h : Alike s t) (input : TurnInput) :
    (e.run s input).visible = (e.run t input).visible :=
  settle_visible hRules h.beginTurn_visible _ _

theorem run_fired (hRules : e.rules = defaultRules) (h : Alike s t) (input : TurnInput) :
    (e.run s input).fired = (e.run t input).fired := by
  rw [← CycleResult.fired_visible, run_visible hRules h, CycleResult.fired_visible]

theorem turn_of_run (h : (e.run s input).outcome = .ok u) : u.turn = {} := by
  obtain ⟨t, -, -, rfl⟩ := exists_trace_of_run h
  rfl

theorem version_of_run (h : (e.run s input).outcome = .ok u) :
    u.version = s.version + UInt64.ofNat (e.run s input).fired.length := by
  obtain ⟨t, hTrace, -, rfl⟩ := exists_trace_of_run h
  exact hTrace.version_eq

theorem lu_of_run (hRules : e.rules = defaultRules) (h : (e.run s input).outcome = .ok u)
    (hMoves : input.moves ≠ []) : u.shared.lu = some input.utterance := by
  obtain ⟨t, hTrace, hSettled, rfl⟩ := exists_trace_of_run h
  have hLatched := latched?_of_isSettled hRules (hTrace.attends hRules) hMoves hSettled
  exact (InformationState.latched?_eq_some_iff.mp hLatched).2

/-- How two cycles on the input end, from `s` and from `t`, when both do the same in so many firings:
they are refused alike, or they return what has come to the same point. -/
inductive EndAlike (input : TurnInput) (s t : InformationState) (firings : Nat) :
    Except NoProgress InformationState → Except NoProgress InformationState → Prop where
  | refused (fault : NoProgress) : EndAlike input s t firings (.error fault) (.error fault)
  | returned {u v : InformationState} : Alike u v → u.nextMoves = v.nextMoves →
      u.turn = {} → v.turn = {} → (input.moves ≠ [] → u.shared.lu = v.shared.lu) →
      u.version = s.version + UInt64.ofNat firings →
      v.version = t.version + UInt64.ofNat firings → EndAlike input s t firings (.ok u) (.ok v)

theorem endAlike_of_alike (hRules : e.rules = defaultRules) (h : Alike s t) (input : TurnInput) :
    EndAlike input s t (e.run s input).fired.length (e.run s input).outcome
      (e.run t input).outcome := by
  have hOutcome := congrArg CycleResult.outcome (run_visible hRules h input)
  change (e.run s input).outcome.map _ = (e.run t input).outcome.map _ at hOutcome
  have hFired := run_fired hRules h input
  cases hRun : (e.run s input).outcome with
  | error fault =>
    cases hRun' : (e.run t input).outcome with
    | error fault' =>
      rw [hRun, hRun'] at hOutcome
      cases hOutcome
      exact .refused fault
    | ok v =>
      rw [hRun, hRun'] at hOutcome
      cases hOutcome
  | ok u =>
    cases hRun' : (e.run t input).outcome with
    | error fault' =>
      rw [hRun, hRun'] at hOutcome
      cases hOutcome
    | ok v =>
      rw [hRun, hRun'] at hOutcome
      have hSame : u.visible = v.visible := Except.ok.inj hOutcome
      refine .returned (.of_visible hSame) (congrArg (·.nextMoves) hSame) (turn_of_run hRun)
        (turn_of_run hRun') ?_ (version_of_run hRun) (hFired ▸ version_of_run hRun')
      intro hMoves
      rw [lu_of_run hRules hRun hMoves, lu_of_run hRules hRun' hMoves]

end Engine

end Dialogue
